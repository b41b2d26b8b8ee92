import FoldTape.Brackets
import FoldTape.Machine.Basic

/-!
# Walking through the source

What a source means without compiling it: the walker goes through the text character by
character. Each operator acts once; brackets send the walker just past their partners; every
other character is passed over.
-/

namespace FoldTape

variable {δ : Type} [Device δ]

/-- The walker: its place in the text, the data pointer, the tape and the device. -/
structure Walker (δ : Type) where
  position : Nat
  pointer : Nat
  tape : Tape
  device : δ

/-- Why a walk failed. -/
inductive WalkFault where
  | underflow
  | overflow
  | endOfInput
  | port (e : PortError)
  deriving DecidableEq, Repr

/-- What one character comes to. -/
inductive WalkTurn (δ : Type) where
  | next (w : Walker δ)
  | halted
  | failed (fault : WalkFault) (w : Walker δ)

namespace Walker

/-- The walker at the beginning of a text, on a blank tape. -/
def start (tapeSize : Nat) (device : δ) : Walker δ := ⟨0, 0, .blank tapeSize, device⟩

/-- Acts on one operator. -/
def act (eof : EndPolicy) (text : List Char) (op : Operator) (w : Walker δ) : WalkTurn δ :=
  let cell := w.tape.cell w.pointer
  let on (w : Walker δ) : WalkTurn δ := .next { w with position := w.position + 1 }
  let onWith (cell : UInt8) (device : δ) : WalkTurn δ :=
    on { w with tape := w.tape.store w.pointer cell, device }
  let past (partner : Option Nat) : WalkTurn δ :=
    .next { w with position := partner.getD text.length + 1 }
  match op with
  | .moveRight =>
    if w.pointer + 1 < w.tape.size then on { w with pointer := w.pointer + 1 }
    else .failed .overflow w
  | .moveLeft =>
    if w.pointer = 0 then .failed .underflow w else on { w with pointer := w.pointer - 1 }
  | .increment => onWith (cell + 1) w.device
  | .decrement => onWith (cell - 1) w.device
  | .output =>
    match Device.write (cell.toNat : Int) w.device with
    | .ok _ device => on { w with device }
    | .error e device => .failed (.port e) { w with device }
  | .input =>
    match Device.read w.device with
    | .ok (some byte) device => onWith byte device
    | .ok none device =>
      match eof with
      | .zero => onWith 0 device
      | .error => .failed .endOfInput { w with device }
    | .error e device => .failed (.port e) { w with device }
  | .jumpIfZero => if cell = 0 then past (closingPartner? text w.position) else on w
  | .jumpIfNonzero => if cell = 0 then on w else past (openingPartner? text w.position)

/-- Goes on by one character. -/
def turn (eof : EndPolicy) (text : List Char) (w : Walker δ) : WalkTurn δ :=
  match text[w.position]? with
  | none => .halted
  | some c =>
    match Operator.ofSymbol? c with
    | none => .next { w with position := w.position + 1 }
    | some op => w.act eof text op

/-- Walks to the end: the fault that ends the walk, if any, and the walker as it is left. There
is no result if the walk takes `fuel` turns or more. -/
def walkToEnd (eof : EndPolicy) (text : List Char) :
    Nat → Walker δ → Option (Option WalkFault × Walker δ)
  | 0, _ => none
  | fuel + 1, w =>
    match w.turn eof text with
    | .next w => w.walkToEnd eof text fuel
    | .halted => some (none, w)
    | .failed fault w => some (some fault, w)

end Walker

end FoldTape
