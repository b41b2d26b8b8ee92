import FoldTape.CommandLine.Run
import FoldTape.Proofs.CommandLine.Arguments
import FoldTape.Proofs.Machine.Alike
import FoldTape.Proofs.Machine.Moments

/-!
# The command line and the library agree

There are two ways to run a text. The library keeps input and output in memory and gives a result
or an error; the command line makes its own machine over streams, and ends with an exit code, the
bytes on standard output and a message. Both come to the same.

## Architecture

- **§1 Compiling**: both compile alike.
- **§2 Running**: a run over streams is the run in memory, and does not fail on account of them.
- **§3 Exits**: `CommandLine.run_argumentsFor`.
-/

namespace FoldTape

/-- What a text writes when it is run on given input, whether or not the run returns; nothing if it
cannot be compiled. -/
def textOutput (fuel : Nat) (source : List Char) (input : List UInt8) (settings : Settings) :
    List UInt8 :=
  match compileText source with
  | .error _ => []
  | .ok p =>
    match (Machine.new settings (Ports.inMemory input)).execute fuel p with
    | none => []
    | some report => report.machine.state.device.sink.written.toList

namespace CommandLine

/-! ## §1 Compiling -/

/-- **Both compile alike**: to the same program, or with the same report. -/
theorem Invocation.compile_cases (invocation : Invocation) (source : List Char) :
    (∃ d, compileText source = .error d ∧
      invocation.compile (.ok source) = .error (.unbalanced d)) ∨
    ∃ p log, compileText source = .ok p ∧ invocation.compile (.ok source) = .ok ⟨p, log⟩ := by
  simp only [Invocation.compile, compileText, FoldTape.compile]
  cases Compiler.fresh.compile source with
  | mk outcome compiler =>
    cases outcome with
    | error u => exact .inl ⟨_, rfl, rfl⟩
    | ok p => exact .inr ⟨p, _, rfl, rfl⟩

/-! ## §2 Running -/

/-- Open streams with nothing written carry on from ports in memory. -/
theorem continues_overStreams (input : List UInt8) (autoFlush : Bool) :
    Ports.Continues #[] 0 (.overStreams input autoFlush) (.inMemory input) where
  works := ⟨rfl, rfl⟩
  works' := Ports.works_inMemory input
  unread := rfl
  consumed := rfl
  written := rfl

/-- **A run over streams is the run in memory**: it ends in the same way, with the same output. -/
theorem execute_overStreams_alike (settings : Settings) (input : List UInt8) (autoFlush : Bool)
    (fuel : Nat) (p : Program) :
    Option.Rel (fun r r' => r.fault? = r'.fault? ∧
        r.machine.state.device.sink.written = r'.machine.state.device.sink.written)
      ((Machine.new settings (Ports.overStreams input autoFlush)).execute fuel p)
      ((Machine.new settings (Ports.inMemory input)).execute fuel p) := by
  have hsettings : (Machine.new settings (Ports.overStreams input autoFlush)).settings =
      (Machine.new settings (Ports.inMemory input)).settings := rfl
  have hruns := Machine.execute_alike (Ports.continues_simulation #[] 0) hsettings
    (continues_overStreams input autoFlush) fuel p
  generalize (Machine.new settings (Ports.overStreams input autoFlush)).execute fuel p = there,
    (Machine.new settings (Ports.inMemory input)).execute fuel p = here at hruns ⊢
  cases hruns with
  | none => exact .none
  | some hreport =>
    refine .some ⟨hreport.fault, ?_⟩
    rw [hreport.machine.device.written, Array.empty_append]

/-- No run over working ports fails on account of them, so what is said about a failure is what the
library says. -/
theorem faultMessage_of_execute {m : Machine Ports} (hm : m.state.device.Works) (fuel : Nat)
    (p : Program) : ∀ report, m.execute fuel p = some report → ∀ fault,
      report.fault? = some fault → faultMessage fault = fault.message := by
  intro report h fault hfault
  have hport := (Machine.execute_holds Ports.keeps_works hm h).2
  cases fault with
  | port e => exact (hport e hfault).elim
  | _ => rfl

/-- Without verbosity nothing is noted. -/
theorem renderLog_zero (log : List LogLine) : renderLog 0 log = "" := by
  have hnone : (log.filter fun line => line.level.verbosity ≤ 0) = [] := by
    refine List.filter_eq_nil_iff.mpr ?_
    intro line _
    cases line.level <;> decide
  rw [renderLog, hnone]
  rfl

/-! ## §3 Exits -/

/-- How the command line ends after a run in memory. -/
def exitOf (r : Report Ports) : Exit :=
  let output := r.machine.state.device.sink.written.toList
  match r.fault? with
  | none => ⟨0, output, ""⟩
  | some fault => ⟨1, output, errorLine fault.message⟩

variable {path : String} {s : Settings} {env : Environment}

theorem conclude_invocationFor {c : Compiled} {r : Report Ports} {dump : Bool}
    (hmessage : ∀ fault, r.fault? = some fault → faultMessage fault = fault.message) :
    (invocationFor path s dump).conclude c r = exitOf r := by
  simp only [Invocation.conclude, invocationFor, renderLog_zero, exitOf]
  cases hfault : r.fault? with
  | none => rfl
  | some fault => simp only [hmessage fault hfault, String.empty_append]

/-- **The command line runs a compiled file as the library does.** -/
theorem perform_invocationFor (hstdout : env.stdoutClosed = false) (fuel : Nat) (c : Compiled) :
    (invocationFor path s false).perform fuel env c =
      (((Machine.new s (Ports.inMemory env.stdin)).execute fuel c.program).map exitOf).map .ok := by
  have hports : env.ports = .overStreams env.stdin true := by simp [Environment.ports, hstdout]
  have hworks : (Machine.new s (Ports.overStreams env.stdin true)).state.device.Works :=
    ⟨rfl, rfl⟩
  -- The message for an output that nobody takes is out of the question, since streams work.
  have hmessage := faultMessage_of_execute hworks fuel c.program
  have hruns := execute_overStreams_alike s env.stdin true fuel c.program
  show ((Machine.new s env.ports).execute fuel c.program).map _ = _
  rw [hports]
  generalize (Machine.new s (Ports.overStreams env.stdin true)).execute fuel c.program = there,
    (Machine.new s (Ports.inMemory env.stdin)).execute fuel c.program = here at hruns hmessage ⊢
  cases hruns with
  | none => rfl
  | @some report report' hsame =>
    obtain ⟨hfault, hwritten⟩ := hsame
    have hexit : exitOf report = exitOf report' := by simp only [exitOf, hfault, hwritten]
    simp only [Option.map_some]
    rw [conclude_invocationFor (hmessage report rfl), hexit]

/-- The listing of a compiled file. -/
theorem perform_invocationFor_dump (hstdout : env.stdoutClosed = false) (fuel : Nat)
    (c : Compiled) :
    (invocationFor path s true).perform fuel env c =
      some (.ok ⟨0, bytesOf (String.ofList (c.program.listing ++ ['\n'])), ""⟩) := by
  show some (Except.ok ((invocationFor path s true).list env.stdoutClosed c)) = _
  simp [Invocation.list, hstdout, invocationFor, renderLog_zero]

/-- The exit that an outcome of the library corresponds to, with what has been written. -/
def exitOfOutcome (written : List UInt8) : Except RunError RunResult → Exit
  | .ok result => ⟨0, result.output.toList, ""⟩
  | .error e => ⟨1, written, errorLine e.message⟩

/-- The exit after a run is that of the library's outcome. -/
theorem exitOf_eq {fuel : Nat} {source : List Char} {p : Program}
    (hcompile : compileText source = .ok p) (input : List UInt8) :
    ((Machine.new s (Ports.inMemory input)).execute fuel p).map exitOf =
      (runText fuel source input s).map (exitOfOutcome (textOutput fuel source input s)) := by
  simp only [runText, textOutput, hcompile]
  cases (Machine.new s (Ports.inMemory input)).execute fuel p with
  | none => rfl
  | some report =>
    simp only [Option.map_some, exitOf, Report.result]
    cases report.fault? <;> rfl

/-- What the command line does with a file that can be read. -/
theorem run_readable {bytes : List UInt8} {source : List Char}
    (hpath : path.startsWith "-" = false) (hnul : path.contains '\x00' = false)
    (hfile : env.directory.read path = .ok bytes) (htext : textOfBytes .utf8 bytes = .ok source)
    (hs : Askable s) (dump : Bool) (fuel : Nat) :
    (∀ quit, (invocationFor path s dump).compile (.ok source) = .error quit →
      run fuel (argumentsFor path s ++ if dump then ["--dump-ir"] else []) env = some quit.exit) ∧
    ∀ c, (invocationFor path s dump).compile (.ok source) = .ok c →
      run fuel (argumentsFor path s ++ if dump then ["--dump-ir"] else []) env =
        (invocationFor path s dump).perform fuel env c := by
  have hread : env.directory.readText (invocationFor path s dump).file .utf8 = .ok source := by
    show env.directory.readText path .utf8 = .ok source
    simp only [Directory.readText, hnul, hfile, htext, Bool.false_eq_true, if_false]
  have harguments := Invocation.ofArguments_argumentsFor hpath hs dump
  constructor
  · intro quit hcompile
    simp only [run, harguments, hread, hcompile]
  · intro c hcompile
    simp only [run, harguments, hread, hcompile]

/-- **The command line agrees with the library.** Take a file whose path does not begin with a dash,
a text that its bytes stand for, and settings that can be asked for. The library accepts them. Given
the arguments for them, the command line ends for every number of turns for which the library does:
with 0 and the output if the library gives a result, and otherwise with 1, what was written before
the failure, and the message of the library's error. With `--dump-ir` nothing is run, whatever the
turns and the input: the listing is shown if the text can be compiled, and if not, the command line
ends with the library's report. -/
theorem run_argumentsFor {bytes : List UInt8} {source : List Char}
    (hstdout : env.stdoutClosed = false) (hpath : path.startsWith "-" = false)
    (hnul : path.contains '\x00' = false) (hfile : env.directory.read path = .ok bytes)
    (htext : textOfBytes .utf8 bytes = .ok source) (hs : Askable s) :
    Settings.check s.tapeSize s.eof.word s.maxSteps = .ok s ∧
    (∀ fuel, run fuel (argumentsFor path s) env =
      ((runText fuel source env.stdin s).map
        (exitOfOutcome (textOutput fuel source env.stdin s))).map .ok) ∧
    ∀ fuel, run fuel (argumentsFor path s ++ ["--dump-ir"]) env = some (.ok
      (match compileText source with
      | .ok p => ⟨0, bytesOf (String.ofList (p.listing ++ ['\n'])), ""⟩
      | .error d => ⟨1, [], errorLine (RunError.unbalanced d).message⟩)) := by
  have hrun := run_readable hpath hnul hfile htext hs
  refine ⟨Settings.check_eq_ok hs.cells hs.isNegativeLimit, ?_, ?_⟩
  · intro fuel
    obtain ⟨hrefused, hcompiled⟩ := hrun false fuel
    simp only [Bool.false_eq_true, if_false, List.append_nil] at hrefused hcompiled
    -- Either both stop at the same report, or both run the same program.
    rcases (invocationFor path s false).compile_cases source with
      ⟨d, htext, hcompile⟩ | ⟨p, log, htext, hcompile⟩
    · rw [hrefused _ hcompile]
      simp only [runText, textOutput, htext]
      rfl
    · rw [hcompiled _ hcompile, perform_invocationFor hstdout, exitOf_eq htext]
  · intro fuel
    obtain ⟨hrefused, hcompiled⟩ := hrun true fuel
    simp only [if_true] at hrefused hcompiled
    rcases (invocationFor path s true).compile_cases source with
      ⟨d, htext, hcompile⟩ | ⟨p, log, htext, hcompile⟩
    · rw [hrefused _ hcompile, htext]
      rfl
    · rw [hcompiled _ hcompile, perform_invocationFor_dump hstdout, htext]

/-- A text that echoes a byte and then moves off the tape: the byte comes out all the same, and is
followed by the message. -/
theorem run_argumentsFor_underflow :
    run 9 ["p", "--tape-size", "4", "--eof", "zero", "--max-steps", "9"]
        ⟨⟨[(["p"], [44, 46, 60])], []⟩, [65], false⟩ =
      some (.ok ⟨1, [65],
        "error: data pointer underflow: cannot move left 1 from cell 0 (instruction 2)\n"⟩) ∧
    run 0 ["p", "--tape-size", "4", "--eof", "zero", "--max-steps", "9", "--dump-ir"]
        ⟨⟨[(["p"], [44, 46, 60])], []⟩, [65], false⟩ =
      some (.ok ⟨0, bytesOf "   0  OP_IN\t1\n   1  OP_OUT\t1\n   2  OP_SHL\t1\n", ""⟩) := by
  have hroot : "p".startsWith "/" = false := by decide +kernel
  have hfile : (⟨[(["p"], [44, 46, 60])], []⟩ : Directory).read "p" = .ok [44, 46, 60] := by
    rw [Directory.read, Directory.names_p, hroot]
    rfl
  have htext : textOfBytes .utf8 [44, 46, 60] = .ok [',', '.', '<'] := by rfl
  have hs : Askable { tapeSize := 4, eof := .zero, maxSteps := some 9 } := by
    refine ⟨by decide, by decide, ?_⟩
    rintro limit ⟨⟩
    decide
  have hstdout : (⟨⟨[(["p"], [44, 46, 60])], []⟩, [65], false⟩ : Environment).stdoutClosed =
      false := rfl
  obtain ⟨-, hrun, hdump⟩ := run_argumentsFor hstdout (by decide +kernel) (by simp) hfile htext hs
  constructor
  · have hexit : (runText 9 [',', '.', '<'] [65]
        { tapeSize := 4, eof := .zero, maxSteps := some 9 }).map (exitOfOutcome
          (textOutput 9 [',', '.', '<'] [65] { tapeSize := 4, eof := .zero, maxSteps := some 9 })) =
        some ⟨1, [65],
          "error: data pointer underflow: cannot move left 1 from cell 0 (instruction 2)\n"⟩ := by
      decide +kernel
    exact (hrun 9).trans (congrArg (Option.map Except.ok) hexit)
  · have hlisting : String.ofList (Program.listing #[⟨.input, 1⟩, ⟨.output, 1⟩, ⟨.moveLeft, 1⟩] ++
        ['\n']) = "   0  OP_IN\t1\n   1  OP_OUT\t1\n   2  OP_SHL\t1\n" := by decide +kernel
    exact (hdump 0).trans
      (congrArg (fun text => some (Except.ok (Exit.mk 0 (bytesOf text) ""))) hlisting)

end CommandLine

end FoldTape
