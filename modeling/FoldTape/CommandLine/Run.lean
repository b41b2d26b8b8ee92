import FoldTape.CommandLine.Arguments
import FoldTape.CommandLine.Log
import FoldTape.Files
import FoldTape.Listing

/-!
# The command line

From arguments, files and standard input to an exit code, standard output and the error
stream. The machine reads and writes over streams, and output is flushed after every byte, so
that what was written before a failure is not lost.
-/

namespace FoldTape.CommandLine

/-- What the command line finds when it starts. -/
structure Environment where
  directory : Directory
  stdin : List UInt8
  /-- Nobody takes what is written to standard output. -/
  stdoutClosed : Bool

/-! ## §1 The file -/

/-- A compiled file and the log lines about it. -/
structure Compiled where
  program : Program
  log : List LogLine

/-- Compiles the text of the file, if it could be read. -/
def Invocation.compile (invocation : Invocation) (text : Except FileError (List Char)) :
    Except Quit Compiled :=
  match text with
  | .error e => .error (.unreadable e)
  | .ok text =>
    match Compiler.fresh.compile text with
    | (.error u, _) => .error (.unbalanced (u.diagnostic text))
    | (.ok program, compiler) =>
      .ok ⟨program, compileLog invocation.file text.length program.size compiler.state.loops⟩

/-! ## §2 Listing and running -/

/-- What is said about a run that failed. -/
def faultMessage : Fault → String
  | .port .closedSink => "output closed (broken pipe)"
  | fault => fault.message

/-- Shows the listing of a compiled file. -/
def Invocation.list (invocation : Invocation) (stdoutClosed : Bool) (c : Compiled) : Exit :=
  let log := renderLog invocation.verbosity c.log
  if stdoutClosed then ⟨1, [], log ++ errorLine (faultMessage (.port .closedSink))⟩
  else ⟨0, bytesOf (String.ofList (c.program.listing ++ ['\n'])), log⟩

/-- How the command line ends after a run. -/
def Invocation.conclude (invocation : Invocation) (c : Compiled) (r : Report Ports) : Exit :=
  let log := renderLog invocation.verbosity (c.log ++ runLog c.program.size r)
  let output := r.machine.state.device.sink.written.toList
  match r.fault? with
  | none => ⟨0, output, log⟩
  | some fault => ⟨1, output, log ++ errorLine (faultMessage fault)⟩

/-- The ports of a run: standard input and standard output. -/
def Environment.ports (env : Environment) : Ports :=
  let ports := Ports.overStreams env.stdin true
  if env.stdoutClosed then { ports with sink := .failing 0 ports.sink } else ports

/-- An exit as it is seen from outside: output that nobody takes is lost. -/
def Environment.receive (env : Environment) (exit : Exit) : Exit :=
  if env.stdoutClosed then { exit with stdout := [] } else exit

/-- Does what was asked for with a compiled file. There is no result if `fuel` does not suffice
for the run. -/
def Invocation.perform (invocation : Invocation) (fuel : Nat) (env : Environment)
    (compiled : Compiled) : Option (Except Breakdown Exit) :=
  if invocation.dump then some (.ok (invocation.list env.stdoutClosed compiled))
  else
    match invocation.settings with
    | .error quit => some quit.exit
    | .ok settings =>
      ((Machine.new settings env.ports).execute fuel compiled.program).map fun report =>
        .ok (invocation.conclude compiled report)

/-- The whole command line. There is no result if `fuel` does not suffice for the run. -/
def run (fuel : Nat) (arguments : List String) (env : Environment) :
    Option (Except Breakdown Exit) :=
  match Invocation.ofArguments arguments with
  | .error quit => some (quit.exit.map env.receive)
  | .ok invocation =>
    match invocation.compile (env.directory.readText invocation.file .utf8) with
    | .error quit => some quit.exit
    | .ok compiled => invocation.perform fuel env compiled

end FoldTape.CommandLine
