import FoldTape.CommandLine.Run

/-!
# The program

The command line on real files and streams. All decisions are made by the library; here bytes
are fetched when the machine is about to read and handed on as soon as it has written.
-/

namespace FoldTape.CommandLine.Console

/-- More turns than the kernel can take in any amount of time: `2⁶²`. -/
def unlimitedTurns : Nat := 4611686018427387904

/-- The number that the system gives an error of a file operation. -/
def errorNumber? : IO.Error → Option UInt32
  | .noFileOrDirectory _ number _ => some number
  | .inappropriateType _ number _ => some number
  | .invalidArgument _ number _ => some number
  | _ => none

/-- The fault with a given number, which some operations report with its sign changed. -/
def pathFaultOfNumber? (number : UInt32) : Option PathFault :=
  [PathFault.notFound, .notADirectory, .isADirectory, .nameTooLong].find? fun fault =>
    fault.description.1 == number.toNat || fault.description.1 == (-number).toNat

/-- Reads the text of a file. -/
def readSource (path : String) : IO (Except FileError (List Char)) := do
  try
    return textOfBytes .utf8 (← IO.FS.readBinFile path).toList
  catch e =>
    match (errorNumber? e).bind pathFaultOfNumber? with
    | some fault => return .error (.access fault path)
    | none => throw e

/-- Fetches up to `count` bytes of standard input. -/
def fetch (count : Nat) : IO (List UInt8) := do
  let stdin ← IO.getStdin
  let mut bytes := #[]
  for _ in [0:count] do
    let chunk ← stdin.read 1
    if chunk.isEmpty then break
    bytes := bytes ++ chunk.data
  return bytes.toList

/-- Writes bytes to standard output at once. Tells whether anybody takes them. -/
def handOn (bytes : Array UInt8) : IO Bool := do
  if bytes.isEmpty then return true
  try
    let stdout ← IO.getStdout
    stdout.write ⟨bytes⟩
    stdout.flush
    return true
  catch _ => return false

/-- Runs a packed program to its end. `bursts` are the calls of the kernel so far, last one
first. -/
partial def converse (code : Packed) (bursts : List Burst) (m : Machine Ports) :
    IO (Report Ports) := do
  let budget := m.budget
  match m.burst code unlimitedTurns with
  | none => converse code bursts m
  | some (stop, m) =>
    let r := m.state.registers
    let bursts := ⟨budget, stop, r.pc, r.pointer, r.steps⟩ :: bursts
    let input ← if stop = .input then fetch (m.amount code) else pure []
    let m := m.mapDevice fun _ => Ports.inMemory input
    let (next, fault?) :=
      match m.serve code stop with
      | .over fault? next => (next, some fault?)
      | .goOn next => (next, none)
    if ← handOn next.state.device.sink.written then
      match fault? with
      | some fault? => return ⟨fault?, next.mapDevice fun _ => Ports.inMemory [], bursts.reverse⟩
      | none => converse code bursts next
    else return ⟨some (.port .closedSink), next, bursts.reverse⟩

/-- Does what the arguments ask for. Of the output, what a running program writes is handed on
on the way; the rest is for the caller to write. -/
def perform (arguments : List String) : IO (Except Breakdown Exit) := do
  match Invocation.ofArguments arguments with
  | .error quit => return quit.exit
  | .ok invocation =>
    match invocation.compile (← readSource invocation.file) with
    | .error quit => return quit.exit
    | .ok compiled =>
      if invocation.dump then return .ok (invocation.list false compiled)
      else
        match invocation.settings with
        | .error quit => return quit.exit
        | .ok settings =>
          let m := Machine.new settings (Ports.inMemory [])
          match compiled.program.pack? with
          | none => return .ok (invocation.conclude compiled ⟨some .operandTooLarge, m, []⟩)
          | some code => return .ok (invocation.conclude compiled (← converse code [] m))

end FoldTape.CommandLine.Console

/-- The command line. A breakdown is reported like an error. -/
def main (arguments : List String) : IO UInt32 := do
  let stderr ← IO.getStderr
  match ← FoldTape.CommandLine.Console.perform arguments with
  | .error breakdown =>
    stderr.putStr (FoldTape.CommandLine.errorLine breakdown.message)
    return 1
  | .ok exit =>
    stderr.putStr exit.stderr
    if ← FoldTape.CommandLine.Console.handOn exit.stdout.toArray then
      return UInt32.ofNat exit.code
    else
      let message := FoldTape.CommandLine.faultMessage (.port .closedSink)
      stderr.putStr (FoldTape.CommandLine.errorLine message)
      return 1
