import FoldTape.Port.Device

/-!
# Sinks

Where output bytes go: to a buffer in memory, or to an output stream that may be flushed after
every byte. A sink can also be made to fail after a number of writes.
-/

namespace FoldTape

/-- Whether a number is a byte. -/
def isByte (value : Int) : Bool := 0 ≤ value ∧ value < 256

/-! ## §1 Output streams -/

/-- A stream that takes chunks of bytes until it is closed. -/
structure OutStream where
  written : Array UInt8
  /-- How often the stream has been flushed. -/
  flushes : Nat
  isOpen : Bool
  deriving Repr

namespace OutStream

/-- An open stream to which nothing has been written. -/
def empty : OutStream := ⟨#[], 0, true⟩

/-- Writes a chunk of bytes. -/
def write (chunk : List UInt8) : OutStream → EStateM.Result PortError OutStream Unit
  | ⟨written, flushes, true⟩ => .ok () ⟨written.appendList chunk, flushes, true⟩
  | ⟨written, flushes, false⟩ => .error .closedStream ⟨written, flushes, false⟩

/-- Flushes the stream. -/
def flush : OutStream → EStateM.Result PortError OutStream Unit
  | ⟨written, flushes, true⟩ => .ok () ⟨written, flushes + 1, true⟩
  | ⟨written, flushes, false⟩ => .error .closedStream ⟨written, flushes, false⟩

/-- Closes the stream. -/
def close (s : OutStream) : OutStream := { s with isOpen := false }

end OutStream

/-! ## §2 Sinks -/

/-- A sink for output bytes. -/
inductive Sink where
  /-- A buffer in memory. -/
  | memory (written : Array UInt8)
  /-- An output stream, flushed after every byte if `autoFlush` is set. -/
  | stream (s : OutStream) (autoFlush : Bool)
  /-- A sink on which only a number of writes succeed. -/
  | failing (left : Nat) (inner : Sink)
  deriving Repr

namespace Sink

/-- An empty buffer in memory. -/
def empty : Sink := .memory #[]

/-- Writes a value, which has to be a byte. -/
def write (value : Int) : Sink → EStateM.Result PortError Sink Unit
  | .memory written =>
    if isByte value then .ok () (.memory (written.push (UInt8.ofNat value.toNat)))
    else .error .notAByte (.memory written)
  | .stream s autoFlush =>
    if isByte value then
      match s.write [UInt8.ofNat value.toNat] with
      | .error e s => .error e (.stream s autoFlush)
      | .ok _ s =>
        if autoFlush then
          match s.flush with
          | .error e s => .error e (.stream s autoFlush)
          | .ok _ s => .ok () (.stream s autoFlush)
        else .ok () (.stream s autoFlush)
    else .error .notBytes (.stream s autoFlush)
  | .failing 0 inner => .error .closedSink (.failing 0 inner)
  | .failing (left + 1) inner =>
    match inner.write value with
    | .ok _ inner => .ok () (.failing left inner)
    | .error e inner => .error e (.failing left inner)

/-- Everything that has been written. -/
def written : Sink → Array UInt8
  | .memory written => written
  | .stream s _ => s.written
  | .failing _ inner => inner.written

/-- How often the stream behind a sink has been flushed. -/
def flushes : Sink → Nat
  | .memory _ => 0
  | .stream s _ => s.flushes
  | .failing _ inner => inner.flushes

/-- Closes the stream behind a sink; a buffer in memory needs no closing. -/
def close : Sink → Sink
  | .memory written => .memory written
  | .stream s autoFlush => .stream s.close autoFlush
  | .failing left inner => .failing left inner.close

end Sink

end FoldTape
