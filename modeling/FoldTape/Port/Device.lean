/-!
# Devices

A machine reads and writes single bytes through a device and knows nothing else about it. A
read gives a byte, or nothing at the end of the input; either operation may fail. In every case
the device goes on in a new state, also after a failure.

What a machine does for every device it does for one that notes each operation
(`Recorded`), so a statement over all devices settles the order of all reads and writes.
-/

namespace FoldTape

/-- Why a read or a write failed. -/
inductive PortError where
  /-- The stream has been closed. -/
  | closedStream
  /-- The value to be stored is not a byte. -/
  | notAByte
  /-- A chunk to be written holds a value that is not a byte. -/
  | notBytes
  /-- Nobody takes what is written. -/
  | closedSink
  /-- The device is not ready. -/
  | notReady
  deriving DecidableEq, Repr

/-- What is said about a failed read or write. -/
def PortError.message : PortError → String
  | closedStream => "I/O operation on closed file."
  | notAByte => "byte must be in range(0, 256)"
  | notBytes => "bytes must be in range(0, 256)"
  | closedSink => "sink closed"
  | notReady => "device not ready"

/-- Reads and writes of single bytes. -/
class Device (δ : Type) where
  /-- Takes the next byte, or nothing at the end of the input. -/
  read : δ → EStateM.Result PortError δ (Option UInt8)
  /-- Writes a value, which should be a byte. -/
  write : Int → δ → EStateM.Result PortError δ Unit

/-! ## Noting reads and writes -/

/-- A read or a write that succeeded. -/
inductive PortEvent where
  | read (byte : Option UInt8)
  | wrote (value : Int)
  deriving DecidableEq, Repr

/-- A device that notes what is read and written, last event first. -/
structure Recorded (δ : Type) where
  device : δ
  events : List PortEvent

instance {δ : Type} [Device δ] : Device (Recorded δ) where
  read r :=
    match Device.read r.device with
    | .ok byte device => .ok byte ⟨device, .read byte :: r.events⟩
    | .error e device => .error e ⟨device, r.events⟩
  write value r :=
    match Device.write value r.device with
    | .ok _ device => .ok () ⟨device, .wrote value :: r.events⟩
    | .error e device => .error e ⟨device, r.events⟩

end FoldTape
