import FoldTape.Port.Device

/-!
# Sources

Where input bytes come from: bytes held in memory, or an input stream from which one byte is
taken at a time. A source can also be made to fail after a number of reads.
-/

namespace FoldTape

/-! ## §1 Input streams -/

/-- A stream of bytes that are taken in chunks until it is closed. -/
structure InStream where
  unread : List UInt8
  /-- How many bytes have been taken. -/
  position : Nat
  isOpen : Bool
  deriving Repr

namespace InStream

/-- An open stream of given bytes. -/
def ofBytes (bytes : List UInt8) : InStream := ⟨bytes, 0, true⟩

/-- Takes up to `count` bytes; none are left at the end of the stream. -/
def take (count : Nat) (s : InStream) : EStateM.Result PortError InStream (List UInt8) :=
  if s.isOpen then
    let chunk := s.unread.take count
    .ok chunk { s with unread := s.unread.drop count, position := s.position + chunk.length }
  else .error .closedStream s

/-- Closes the stream. -/
def close (s : InStream) : InStream := { s with isOpen := false }

end InStream

/-! ## §2 Sources -/

/-- A source of input bytes. -/
inductive Source where
  /-- Bytes in memory, and how many have been taken before them. -/
  | memory (unread : List UInt8) (offset : Nat)
  /-- An input stream. -/
  | stream (s : InStream)
  /-- A source on which only a number of reads succeed. -/
  | failing (left : Nat) (inner : Source)
  deriving Repr

namespace Source

/-- A source of given bytes in memory. -/
def ofBytes (bytes : List UInt8) : Source := .memory bytes 0

/-- Takes the next byte, or nothing at the end of the input. -/
def read : Source → EStateM.Result PortError Source (Option UInt8)
  | .memory [] offset => .ok none (.memory [] offset)
  | .memory (b :: unread) offset => .ok (some b) (.memory unread (offset + 1))
  | .stream s =>
    match s.take 1 with
    | .ok chunk s => .ok chunk.head? (.stream s)
    | .error e s => .error e (.stream s)
  | .failing 0 inner => .error .notReady (.failing 0 inner)
  | .failing (left + 1) inner =>
    match inner.read with
    | .ok byte inner => .ok byte (.failing left inner)
    | .error e inner => .error e (.failing left inner)

/-- How many bytes have been taken. -/
def consumed : Source → Nat
  | .memory _ offset => offset
  | .stream s => s.position
  | .failing _ inner => inner.consumed

/-- The bytes that are still to come. -/
def unread : Source → List UInt8
  | .memory bytes _ => bytes
  | .stream s => s.unread
  | .failing _ inner => inner.unread

/-- Closes the stream behind a source; bytes in memory need no closing. -/
def close : Source → Source
  | .memory bytes offset => .memory bytes offset
  | .stream s => .stream s.close
  | .failing left inner => .failing left inner.close

end Source

end FoldTape
