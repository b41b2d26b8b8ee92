import FoldTape.Port.Source
import FoldTape.Port.Sink

/-!
# Ports

A source and a sink together make a device: reads go to the source, writes to the sink.
-/

namespace FoldTape

/-- A source of input and a sink for output. -/
structure Ports where
  source : Source
  sink : Sink
  deriving Repr

namespace Ports

/-- Input from memory and output to memory. -/
def inMemory (input : List UInt8) : Ports := ⟨.ofBytes input, .empty⟩

/-- Input from an open stream and output to an open stream. -/
def overStreams (input : List UInt8) (autoFlush : Bool) : Ports :=
  ⟨.stream (.ofBytes input), .stream .empty autoFlush⟩

instance : Device Ports where
  read
    | ⟨source, sink⟩ =>
      match source.read with
      | .ok byte source => .ok byte ⟨source, sink⟩
      | .error e source => .error e ⟨source, sink⟩
  write value
    | ⟨source, sink⟩ =>
      match sink.write value with
      | .ok _ sink => .ok () ⟨source, sink⟩
      | .error e sink => .error e ⟨source, sink⟩

end Ports

end FoldTape
