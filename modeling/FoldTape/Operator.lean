/-!
# Operators

The language has eight operators, each written as one ASCII character; every other character
is commentary. An operator is known by its symbol, by the code point of that symbol (its
*code*), and by the mnemonic used in listings.

Main statements:

- `ofSymbol?_eq_some_iff`: reading a character inverts `symbol`, and nothing else is read;
- `ofCode?_eq_some_iff`: the same for codes.
-/

namespace FoldTape

/-- The eight operators of the language. -/
inductive Operator where
  /-- `<`: move the data pointer to the left. -/
  | moveLeft
  /-- `>`: move the data pointer to the right. -/
  | moveRight
  /-- `+`: add to the current cell. -/
  | increment
  /-- `-`: subtract from the current cell. -/
  | decrement
  /-- `.`: write the current cell. -/
  | output
  /-- `,`: read into the current cell. -/
  | input
  /-- `[`: skip the loop if the current cell is zero. -/
  | jumpIfZero
  /-- `]`: repeat the loop unless the current cell is zero. -/
  | jumpIfNonzero
  deriving DecidableEq, Repr

namespace Operator

/-! ## §1 Symbols and codes -/

/-- The character an operator is written with. -/
def symbol : Operator → Char
  | moveLeft => '<'
  | moveRight => '>'
  | increment => '+'
  | decrement => '-'
  | output => '.'
  | input => ','
  | jumpIfZero => '['
  | jumpIfNonzero => ']'

/-- The operator written with a character, if there is one. -/
def ofSymbol? : Char → Option Operator
  | '<' => some moveLeft
  | '>' => some moveRight
  | '+' => some increment
  | '-' => some decrement
  | '.' => some output
  | ',' => some input
  | '[' => some jumpIfZero
  | ']' => some jumpIfNonzero
  | _ => none

@[simp] theorem ofSymbol?_symbol (op : Operator) : ofSymbol? op.symbol = some op := by
  cases op <;> rfl

/-- **Reading inverts writing**: a character is read as `op` exactly when it is the symbol of
`op`. -/
theorem ofSymbol?_eq_some_iff {c : Char} {op : Operator} :
    ofSymbol? c = some op ↔ c = op.symbol := by
  constructor
  · intro h
    unfold ofSymbol? at h
    split at h <;> cases h <;> rfl
  · rintro rfl
    exact ofSymbol?_symbol op

/-- The operator that a text consists of: the text must be a single symbol. -/
def ofText? (text : String) : Option Operator :=
  match text.toList with
  | [c] => ofSymbol? c
  | _ => none

/-- The code point of the operator's symbol, which serves as its number. -/
def code (op : Operator) : Nat := op.symbol.toNat

/-- Every operator, in the order of the listing of codes. -/
def all : List Operator :=
  [moveLeft, moveRight, increment, decrement, output, input, jumpIfZero, jumpIfNonzero]

/-- The operator with a given code, if there is one. -/
def ofCode? (code : Int) : Option Operator :=
  all.find? fun op => (op.code : Int) == code

theorem ofCode?_eq_some_iff {code : Int} {op : Operator} :
    ofCode? code = some op ↔ code = op.code := by
  constructor
  · intro h
    have found := List.find?_some h
    exact (beq_iff_eq.mp found).symm
  · rintro rfl
    cases op <;> rfl

/-! ## §2 Kinds of operator -/

/-- The two brackets jump; their operand is an address and not a repeat count. -/
def isJump : Operator → Bool
  | jumpIfZero | jumpIfNonzero => true
  | _ => false

/-- The operator's name in a listing. -/
def mnemonic : Operator → String
  | moveLeft => "OP_SHL"
  | moveRight => "OP_SHR"
  | increment => "OP_INC"
  | decrement => "OP_DEC"
  | output => "OP_OUT"
  | input => "OP_IN"
  | jumpIfZero => "OP_JZ"
  | jumpIfNonzero => "OP_JNZ"

/-- The operator's full name. -/
def name : Operator → String
  | moveLeft => "MOVE_LEFT"
  | moveRight => "MOVE_RIGHT"
  | increment => "INCREMENT"
  | decrement => "DECREMENT"
  | output => "OUTPUT"
  | input => "INPUT"
  | jumpIfZero => "JUMP_IF_ZERO"
  | jumpIfNonzero => "JUMP_IF_NONZERO"

end Operator

end FoldTape
