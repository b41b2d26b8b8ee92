import FoldTape.Instruction

/-!
# Compiler

A single pass from source text to a program. A run of one operator other than a bracket folds
into one instruction whose operand is the length of the run. An opening bracket is entered
with the placeholder operand `0`; when its partner is met, both operands are known: the
opening bracket jumps past its partner, the closing one jumps to just after the opening one.

The pass works on one character at a time. Whether a character continues a run depends on the
character before it and on nothing else, so the pass over a concatenation is the pass over the
first part followed by the pass over the second (`Builder.feedAll_append`).
-/

namespace FoldTape

/-! ## §1 The builder -/

/-- An opening bracket that waits for its partner. -/
structure OpenLoop where
  /-- The address of its instruction. -/
  address : Nat
  /-- Its place in the source. -/
  position : Nat
  deriving DecidableEq, Repr

/-- What the compiler has built from the characters read so far. -/
structure Builder where
  code : Program
  /-- The loops that are still open, innermost first. -/
  opened : List OpenLoop
  /-- How many loops have been closed. -/
  loops : Nat
  deriving DecidableEq, Repr

/-- The builder before the first character. -/
def Builder.empty : Builder := ⟨#[], [], 0⟩

/-- The way in which the brackets of a source fail to match. -/
inductive Imbalance where
  /-- A closing bracket was met while no loop was open. -/
  | unmatchedClosing
  /-- The source ended while a loop was open. -/
  | unmatchedOpening
  deriving DecidableEq, Repr

/-- An imbalance and the place in the source of the bracket that is to blame. -/
structure Unbalanced where
  imbalance : Imbalance
  position : Nat
  deriving DecidableEq, Repr

namespace Builder

/-- Takes one more repetition of the operator of the last instruction. -/
def extendRun : Builder → Builder
  | ⟨code, opened, loops⟩ =>
    ⟨code.modify (code.size - 1) fun i => { i with operand := i.operand + 1 }, opened, loops⟩

/-- Begins a run of an operator. -/
def startRun (op : Operator) : Builder → Builder
  | ⟨code, opened, loops⟩ => ⟨code.push ⟨op, 1⟩, opened, loops⟩

/-- Enters an opening bracket, whose target is not known yet. -/
def openLoop (position : Nat) : Builder → Builder
  | ⟨code, opened, loops⟩ =>
    let opened := ⟨code.size, position⟩ :: opened
    ⟨code.push ⟨.jumpIfZero, 0⟩, opened, loops⟩

/-- Enters a closing bracket and gives both brackets of the loop their targets. Without an
open loop there is nothing to close. -/
def closeLoop : Builder → Builder
  | ⟨code, [], loops⟩ => ⟨code, [], loops⟩
  | ⟨code, l :: opened, loops⟩ =>
    let code := code.push ⟨.jumpIfNonzero, l.address + 1⟩
    ⟨code.setIfInBounds l.address ⟨.jumpIfZero, code.size⟩, opened, loops + 1⟩

/-- Reads one character at a position, after the character `previous`. -/
def feed (previous : Option Char) (position : Nat) (c : Char) (b : Builder) : Builder :=
  match Operator.ofSymbol? c with
  | none => b
  | some .jumpIfZero => b.openLoop position
  | some .jumpIfNonzero => b.closeLoop
  | some op => if previous = some c then b.extendRun else b.startRun op

/-- Whether a character is a closing bracket for which no loop is open. -/
def isUnmatched (b : Builder) (c : Char) : Bool :=
  c = Operator.jumpIfNonzero.symbol && b.opened.isEmpty

/-- Reads characters from a position on. At a closing bracket for which no loop is open reading
stops, with the builder as it is and the position of that bracket. -/
def feedAll (previous : Option Char) (position : Nat) :
    List Char → Builder → EStateM.Result Nat Builder Unit
  | [], b => .ok () b
  | c :: rest, b =>
    if b.isUnmatched c then .error position b
    else feedAll (some c) (position + 1) rest (b.feed previous position c)

/-- The last character of a text is unchanged by one more in front, once there is one. -/
private theorem getLast?_or_cons (c : Char) (s : List Char) (previous : Option Char) :
    s.getLast?.or (some c) = (c :: s).getLast?.or previous := by
  cases s with
  | nil => rfl
  | cons d s => simp [List.getLast?_cons]

/-- **The pass can be split**: reading a concatenation is reading the first text and then, after
its last character, the second. -/
theorem feedAll_append (s t : List Char) (previous : Option Char) (position : Nat) (b : Builder) :
    feedAll previous position (s ++ t) b =
      match feedAll previous position s b with
      | .ok _ b => feedAll (s.getLast?.or previous) (position + s.length) t b
      | .error p b => .error p b := by
  induction s generalizing previous position b with
  | nil => simp [feedAll]
  | cons c s ih =>
    simp only [List.cons_append, feedAll]
    split
    · rfl
    · rw [ih, getLast?_or_cons c s previous, List.length_cons, Nat.add_assoc, Nat.add_comm 1]

end Builder

/-! ## §2 Compiling a source -/

/-- A compiler that can be used again and again; it keeps what its last use has built. -/
structure Compiler where
  state : Builder

namespace Compiler

/-- A compiler that has not been used. -/
def fresh : Compiler := ⟨.empty⟩

/-- Forgets what the last use has built. -/
def reset (c : Compiler) : Compiler :=
  { c with state := { c.state with code := #[], opened := [], loops := 0 } }

/-- Compiles a source. The compiler keeps what it has built, also when the brackets of the
source do not match: up to the closing bracket without partner, or to the end of a source in
which a loop is still open. The innermost of several open loops is to blame. -/
def compile (c : Compiler) (source : List Char) : Except Unbalanced Program × Compiler :=
  match Builder.feedAll none 0 source c.reset.state with
  | .error position b => (.error ⟨.unmatchedClosing, position⟩, ⟨b⟩)
  | .ok _ b =>
    match b.opened with
    | l :: _ => (.error ⟨.unmatchedOpening, l.position⟩, ⟨b⟩)
    | [] => (.ok b.code, ⟨b⟩)

/-- Compiles sources in turn, whether or not their brackets match: gives what each of them comes
to, with the compiler after it. -/
def compileAll (c : Compiler) : List (List Char) → List (Except Unbalanced Program × Compiler)
  | [] => []
  | source :: sources =>
    let compiled := c.compile source
    compiled :: compiled.2.compileAll sources

end Compiler

/-- Compiles a source with a compiler of its own. -/
def compile (source : List Char) : Except Unbalanced Program :=
  (Compiler.fresh.compile source).1

end FoldTape
