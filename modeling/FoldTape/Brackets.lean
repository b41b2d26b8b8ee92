import FoldTape.Operator

/-!
# Brackets

When brackets match, said without a compiler: by counting. Reading from the left, each opening
bracket counts one up and each closing bracket one down. A text is balanced if no beginning of
it counts below zero and the whole counts zero. The partner of an opening bracket is the first
closing bracket after it at which the count falls below its value there.
-/

namespace FoldTape

/-- How many more opening than closing brackets a text has. -/
def bracketCount (text : List Char) : Int :=
  (text.count '[' : Int) - text.count ']'

@[simp] theorem bracketCount_nil : bracketCount [] = 0 := rfl

theorem bracketCount_append (s t : List Char) :
    bracketCount (s ++ t) = bracketCount s + bracketCount t := by
  simp only [bracketCount, List.count_append]
  omega

/-- Whether every bracket has its partner. -/
def Balanced (text : List Char) : Prop :=
  bracketCount text = 0 ∧ ∀ n, 0 ≤ bracketCount (text.take n)

/-- The position of the first closing bracket that `depth` loops opened before do not account
for, reading from a position on. -/
def closingFrom (depth position : Nat) : List Char → Option Nat
  | [] => none
  | c :: rest =>
    if c = '[' then closingFrom (depth + 1) (position + 1) rest
    else if c = ']' then
      match depth with
      | 0 => some position
      | depth + 1 => closingFrom depth (position + 1) rest
    else closingFrom depth (position + 1) rest

/-- The position of the partner of the opening bracket at a position. -/
def closingPartner? (text : List Char) (position : Nat) : Option Nat :=
  closingFrom 0 (position + 1) (text.drop (position + 1))

/-- The position of the last opening bracket that `depth` loops closed behind it do not account
for. The text is read from its end, which is where `position` characters have been left. -/
def openingFrom (depth : Nat) : List Char → Option Nat
  | [] => none
  | c :: rest =>
    if c = ']' then openingFrom (depth + 1) rest
    else if c = '[' then
      match depth with
      | 0 => some rest.length
      | depth + 1 => openingFrom depth rest
    else openingFrom depth rest

/-- The position of the partner of the closing bracket at a position. -/
def openingPartner? (text : List Char) (position : Nat) : Option Nat :=
  openingFrom 0 (text.take position).reverse

end FoldTape
