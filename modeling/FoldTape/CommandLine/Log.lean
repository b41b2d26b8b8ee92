import FoldTape.CommandLine.Usage
import FoldTape.Machine.Execution

/-!
# Log lines

What is noted along the way, for those who ask for it: once for general progress, twice for
every stop of the kernel as well.
-/

namespace FoldTape.CommandLine

/-- How important a log line is. -/
inductive LogLevel where
  | debug
  | info
  deriving DecidableEq, Repr

/-- A log line: its level, the part of the program it comes from, and its text. -/
structure LogLine where
  level : LogLevel
  origin : String
  text : String
  deriving DecidableEq, Repr

/-- The word for a level. -/
def LogLevel.word : LogLevel → String
  | debug => "DEBUG"
  | info => "INFO"

/-- How often verbosity has to be asked for before lines of a level appear. -/
def LogLevel.verbosity : LogLevel → Nat
  | debug => 2
  | info => 1

/-- The text of those lines that appear at a verbosity, each on a line of its own. -/
def renderLog (verbosity : Nat) (log : List LogLine) : String :=
  let shown := log.filter fun line => line.level.verbosity ≤ verbosity
  String.join (shown.map fun line => line.level.word ++ " " ++ line.origin ++ ": " ++ line.text ++ "\n")

/-- The lines about a file that has been compiled. -/
def compileLog (file : String) (characters instructions loops : Nat) : List LogLine :=
  [⟨.debug, "bfvm.compiler",
      "compiled " ++ decimalText characters ++ " chars into " ++ decimalText instructions ++
        " instructions (" ++ decimalText loops ++ " loops)"⟩,
    ⟨.info, "bfvm.cli",
      "compiled " ++ file ++ " into " ++ decimalText instructions ++ " instructions"⟩]

/-- The line about a stop of the kernel. -/
def burstLine (b : Burst) : LogLine :=
  ⟨.debug, "bfvm.vm",
    "kernel stopped: reason=" ++ decimalText b.stop.code ++ " pc=" ++ decimalText b.pc ++ " dp=" ++
      decimalText b.pointer ++ " steps=" ++ decimalText b.steps⟩

/-- The lines about a run. -/
def runLog {δ : Type} (instructions : Nat) (r : Report δ) : List LogLine :=
  let begun : LogLine :=
    ⟨.info, "bfvm.vm",
      "executing " ++ decimalText instructions ++ " instructions on a " ++
        decimalText r.machine.settings.tapeSize ++ "-cell tape"⟩
  let halted : LogLine :=
    ⟨.info, "bfvm.vm", "halted after " ++ decimalText r.machine.state.registers.steps ++ " steps"⟩
  begun :: (r.bursts.map burstLine ++ if r.fault? = none then [halted] else [])

end FoldTape.CommandLine
