import FoldTape.Instruction

/-!
# Writing programs as source text

The way back from programs to text. A program is well formed if it is what some text folds
into: every run has at least one repetition, and every loop is entered by a jump past its end
and repeated by a jump to just after its beginning. Such a program can be written as text; a
blank keeps apart two runs of the same operator.
-/

namespace FoldTape

/-! ## §1 Blocks of a text -/

/-- Whether two neighbouring characters belong to one block: they are the same, and not
brackets. -/
def sameBlock (a b : Char) : Bool := a = b && a ≠ '[' && a ≠ ']'

/-- The blocks of a text: the longest runs of one operator, and each bracket by itself. Other
characters belong to no block. -/
def blocks (text : List Char) : List (List Char) :=
  (text.splitBy sameBlock).filter fun block =>
    (block.head?.bind Operator.ofSymbol?).isSome

/-! ## §2 Well-formed programs -/

/-- The instructions, of which the first has the given address, are runs and whole loops. -/
inductive Nested : Nat → List Instruction → Prop
  /-- Nothing is well formed. -/
  | nil (address : Nat) : Nested address []
  /-- A run, and what follows. -/
  | run {address : Nat} {i : Instruction} {rest : List Instruction} :
      i.operator.isJump = false → 1 ≤ i.operand → Nested (address + 1) rest →
      Nested address (i :: rest)
  /-- A loop with its body, and what follows. -/
  | loop {address : Nat} {body rest : List Instruction} :
      Nested (address + 1) body → Nested (address + body.length + 2) rest →
      Nested address
        (⟨.jumpIfZero, address + body.length + 2⟩ ::
          (body ++ ⟨.jumpIfNonzero, address + 1⟩ :: rest))

/-- A program made of runs and whole loops. -/
def Program.WellFormed (p : Program) : Prop := Nested 0 p.toList

/-- The program with all jump targets moved by a distance. -/
def Program.shift (distance : Int) (p : Program) : Program :=
  p.map fun i => if i.operator.isJump then { i with operand := i.operand + distance } else i

/-! ## §3 Writing -/

/-- An instruction as text: a bracket, or its operator repeated. -/
def Instruction.render (i : Instruction) : List Char :=
  if i.operator.isJump then [i.operator.symbol]
  else List.replicate i.operand.toNat i.operator.symbol

/-- Whether two neighbouring instructions would run together in a text. -/
def Instruction.runsInto (i j : Instruction) : Bool :=
  i.operator = j.operator && !i.operator.isJump

/-- Instructions as text, with blanks where they would run together. -/
def renderAll : List Instruction → List Char
  | [] => []
  | i :: rest =>
    let gap :=
      match rest with
      | j :: _ => if i.runsInto j then [' '] else []
      | [] => []
    i.render ++ gap ++ renderAll rest

/-- A program as text. -/
def Program.render (p : Program) : List Char := renderAll p.toList

end FoldTape
